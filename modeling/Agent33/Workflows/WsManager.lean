import Agent33.Library.Cooperative
import Agent33.Library.Dict
import Agent33.Library.Json
import Agent33.Security.Permissions

/-!
# The event manager of workflow runs

Snapshots, replay buffers and subscriptions of workflow runs, and the coroutines
that publish events and connect readers. Every access to the maps is a section
of the manager's lock. Queues and connections are objects on a heap; what has
left a queue is kept next to it. The part of a snapshot that only sync events
read is left out.
-/

namespace Agent33.Workflows.WsManager

open Library Library.Cooperative Security.Permissions List Option Coroutine

inductive WorkflowEventType
  | sync
  | heartbeat
  | workflowStarted
  | stepStarted
  | stepCompleted
  | stepFailed
  | stepSkipped
  | stepRetrying
  | workflowCompleted
  | workflowFailed

def WorkflowEventType.value : WorkflowEventType → String
  | sync => "sync"
  | heartbeat => "heartbeat"
  | workflowStarted => "workflow_started"
  | stepStarted => "step_started"
  | stepCompleted => "step_completed"
  | stepFailed => "step_failed"
  | stepSkipped => "step_skipped"
  | stepRetrying => "step_retrying"
  | workflowCompleted => "workflow_completed"
  | workflowFailed => "workflow_failed"

structure WorkflowEvent where
  eventType : WorkflowEventType
  runId : String
  workflowName : String
  timestamp : BitVec 64 := 0
  stepId : Option String := none
  data : List (String × Json) := []
  eventId : Option Text := none
  schemaVersion : Int := 1

/-- The payload that `to_json` serialises. It does not carry the event id. -/
def WorkflowEvent.toDict (e : WorkflowEvent) : Json :=
  .obj ([("type", .str e.eventType.value), ("run_id", .str e.runId),
      ("workflow_name", .str e.workflowName), ("timestamp", .float e.timestamp),
      ("schema_version", .int e.schemaVersion)] ++
    (e.stepId.map fun stepId => ("step_id", Json.str stepId)).toList ++
    if e.data = [] then [] else [("data", .obj e.data)])

structure WorkflowRunSnapshot where
  runId : String
  workflowName : String
  ownerSubject : Option String := none
  tenantId : Option String := none
  lastEventId : ℕ := 0
  schemaVersion : Int

abbrev Ws := ℕ
abbrev ConnId := ℕ
abbrev QueueId := ℕ

inductive Sender
  | waiting
  | sending (payload : Json)
  | done

structure ConnectionState where
  ws : Ws
  queue : List Json := []
  sender : Sender := .waiting
  cancelled : Bool := false
  sent : List Json := []

def ConnectionState.messages (c : ConnectionState) : List Json :=
  c.sent ++ (match c.sender with | .sending payload => [payload] | _ => []) ++ c.queue

structure SseQueue where
  items : List WorkflowEvent := []
  delivered : List WorkflowEvent := []
  dropped : List WorkflowEvent := []

def SseQueue.put (maxsize : ℕ) (queue : SseQueue) (e : WorkflowEvent) : SseQueue :=
  if queue.items.length < maxsize then { queue with items := queue.items ++ [e] }
  else { queue with
    items := queue.items.tail ++ [e]
    dropped := queue.dropped ++ queue.items.head?.toList }

def ConnectionState.next (state : ConnectionState) : ConnectionState :=
  match state.queue with
  | [] => { state with sender := .waiting }
  | payload :: rest => { state with sender := .sending payload, queue := rest }

/-- The end of `_sender_loop`: the queue is drained and the task is done. -/
def ConnectionState.close (state : ConnectionState) : ConnectionState :=
  { state with queue := [], sender := .done }

def ConnectionState.leaves (state : ConnectionState) (sendOk : Bool) : Bool :=
  match state.sender with
  | .done => false
  | .waiting => state.cancelled
  | .sending _ => state.cancelled || !sendOk

def ConnectionState.advance (state : ConnectionState) : ConnectionState :=
  match state.sender with
  | .done => state
  | .waiting => state.next
  | .sending payload => ConnectionState.next { state with sent := state.sent ++ [payload] }

structure WorkflowWSManager where
  sseQueueMaxsize : ℕ
  sseReplayBufferSize : ℕ
  subscriptions : Dict String (List Ws) := Dict.empty
  reverse : Dict Ws (List String) := Dict.empty
  connections : Dict Ws ConnId := Dict.empty
  sseSubscriptions : Dict String (List QueueId) := Dict.empty
  sseReplayBuffers : Dict String (List WorkflowEvent) := Dict.empty
  snapshots : Dict String WorkflowRunSnapshot := Dict.empty
  states : List ConnectionState := []
  queues : List SseQueue := []

namespace WorkflowWSManager

def init (sseQueueMaxsize sseReplayBufferSize : ℕ) : WorkflowWSManager where
  sseQueueMaxsize := max 1 sseQueueMaxsize
  sseReplayBufferSize := max 1 sseReplayBufferSize

variable (m : WorkflowWSManager)

variable (runId : String)

def subscribers : List Ws := m.subscriptions.getD runId []

def runsOf (ws : Ws) : List String := m.reverse.getD ws []

def sseSubscribers : List QueueId := m.sseSubscriptions.getD runId []

def replayBuffer : List WorkflowEvent := m.sseReplayBuffers.getD runId []

def addTo {α : Type} [DecidableEq α] (x : α) (xs : List α) : List α :=
  if x ∈ xs then xs else xs ++ [x]

/-- Take a member out of the set under a key, and the key away with its last member. -/
def discardAt {α : Type} [DecidableEq α] (d : Dict String (List α)) (key : String) (x : α) :
    Dict String (List α) :=
  match d.get? key with
  | none => d
  | some xs =>
    let xs := xs.filter fun y => decide (y ≠ x)
    if xs = [] then d.erase key else d.set key xs

def registerRun (runId workflowName : String) (ownerSubject : Option String) (tenantId : String)
    (schemaVersion : Int) : WorkflowWSManager :=
  let snapshot := m.snapshots.getD runId
    { runId, workflowName, ownerSubject, schemaVersion,
      tenantId := if tenantId = "" then none else some tenantId }
  { m with
    snapshots := m.snapshots.set runId { snapshot with
      workflowName
      ownerSubject := ownerSubject.or snapshot.ownerSubject
      tenantId := if tenantId = "" then snapshot.tenantId else some tenantId }
    sseReplayBuffers := m.sseReplayBuffers.set runId (m.replayBuffer runId) }

def openConnection (ws : Ws) : WorkflowWSManager :=
  match m.connections.get? ws with
  | some _ => m
  | none => { m with
      connections := m.connections.set ws m.states.length
      states := m.states ++ [{ ws }] }

def addSubscription (ws : Ws) (runId : String) : WorkflowWSManager :=
  { m with
    subscriptions := m.subscriptions.set runId (addTo ws (m.subscribers runId))
    reverse := m.reverse.set ws (addTo runId (m.runsOf ws)) }

/-- `_remove_ws_unlocked`. -/
def removeWs (ws : Ws) : WorkflowWSManager :=
  { m with
    reverse := m.reverse.erase ws
    subscriptions := (m.runsOf ws).foldl (fun d runId => discardAt d runId ws) m.subscriptions
    connections := m.connections.erase ws }

def updateState (c : ConnId) (f : ConnectionState → ConnectionState) : WorkflowWSManager :=
  { m with states := m.states.modify c f }

def cancelSender (c : ConnId) : WorkflowWSManager :=
  m.updateState c fun state => { state with cancelled := true }

def newQueue : QueueId × WorkflowWSManager :=
  (m.queues.length, { m with queues := m.queues ++ [{}] })

structure Caller where
  subject : Option String
  tenantId : String := ""
  scopes : List String := []
  isAdmin : Bool := false

def allows (snapshot : WorkflowRunSnapshot) (caller : Caller) : Bool :=
  caller.isAdmin || checkPermission "admin" caller.scopes ||
    ((snapshot.tenantId.getD "" == "" || snapshot.tenantId == some caller.tenantId) &&
      (snapshot.ownerSubject.getD "" == "" || snapshot.ownerSubject == caller.subject))

def parseEventCursor (value : Option Text) : Option Int :=
  match value with
  | none => none
  | some text =>
    if Text.strip text = [] then none
    else
      match Text.parseInt (Text.strip text) with
      | none => none
      | some parsed => if 0 ≤ parsed then some parsed else none

def isAfter (cursor : Int) (e : WorkflowEvent) : Bool :=
  match parseEventCursor e.eventId with
  | none => false
  | some eventCursor => decide (cursor < eventCursor)

def replayEvents (afterEventId : Option Text) : List WorkflowEvent :=
  match parseEventCursor afterEventId with
  | none => []
  | some cursor => (m.replayBuffer runId).filter (isAfter cursor)

def addSseSubscriber (queue : QueueId) : WorkflowWSManager :=
  { m with sseSubscriptions :=
      m.sseSubscriptions.set runId (addTo queue (m.sseSubscribers runId)) }

def unsubscribeSse (queue : QueueId) : WorkflowWSManager :=
  { m with sseSubscriptions := discardAt m.sseSubscriptions runId queue }

def snapshotFor (e : WorkflowEvent) : WorkflowRunSnapshot :=
  m.snapshots.getD e.runId
    { runId := e.runId, workflowName := e.workflowName, schemaVersion := e.schemaVersion }

def assigned (e : WorkflowEvent) : WorkflowEvent :=
  { e with
    schemaVersion := (m.snapshotFor e).schemaVersion
    eventId := some (Text.ofNat ((m.snapshotFor e).lastEventId + 1)) }

def appendBounded (size : ℕ) (buffer : List WorkflowEvent) (e : WorkflowEvent) :
    List WorkflowEvent :=
  (buffer ++ [e]).drop (buffer.length + 1 - size)

/-- The section of `publish_event`: the event as published, the sockets and the
queues to hand it to. -/
def record (e : WorkflowEvent) : (WorkflowEvent × List Ws × List QueueId) × WorkflowWSManager :=
  let event := m.assigned e
  let snapshot := m.snapshotFor e
  let m := { m with
    snapshots := m.snapshots.set e.runId { snapshot with
      workflowName := e.workflowName
      lastEventId := snapshot.lastEventId + 1 }
    sseReplayBuffers := m.sseReplayBuffers.set e.runId
      (appendBounded m.sseReplayBufferSize (m.replayBuffer e.runId) event) }
  ((event, m.subscribers e.runId, m.sseSubscribers e.runId), m)

def publishSseEvent (e : WorkflowEvent) (queue : QueueId) : WorkflowWSManager :=
  { m with queues := m.queues.modify queue fun q => SseQueue.put m.sseQueueMaxsize q e }

/-- The section of `_enqueue_text` for a message nobody waits for. -/
def enqueueText (ws : Ws) (payload : Json) : Bool × WorkflowWSManager :=
  match m.connections.get? ws with
  | none => (false, m)
  | some c =>
    match m.states[c]? with
    | none => (false, m)
    | some state =>
      match state.sender with
      | .done => (false, m)
      | _ => (true, m.updateState c fun state => { state with queue := state.queue ++ [payload] })

def takeSse (queue : QueueId) : WorkflowWSManager :=
  { m with queues := m.queues.modify queue fun q =>
      { q with items := q.items.tail, delivered := q.delivered ++ q.items.head?.toList } }

end WorkflowWSManager

open WorkflowWSManager

abbrev ManagerCoroutine := Coroutine WorkflowWSManager

def registerRun (runId workflowName : String) (ownerSubject : Option String) (tenantId : String)
    (schemaVersion : Int) : ManagerCoroutine PUnit :=
  Coroutine.locked
    (Coroutine.modify (·.registerRun runId workflowName ownerSubject tenantId schemaVersion))

def activeSubscriptions (runId : String) : ManagerCoroutine ℕ :=
  Coroutine.locked do
    let m ← Coroutine.read
    return (m.subscribers runId).length

def connect (ws : Ws) (runId : String) : ManagerCoroutine Bool := do
  let known ← Coroutine.locked do
    let m ← Coroutine.read
    if runId ∈ m.snapshots.keys then
      Coroutine.modify (·.openConnection ws)
      Coroutine.modify (·.addSubscription ws runId)
      return true
    else return false
  if known then
    let _ ← activeSubscriptions runId
  return known

def disconnect (ws : Ws) : ManagerCoroutine PUnit := do
  let conn ← Coroutine.locked do
    let m ← Coroutine.read
    Coroutine.modify (·.removeWs ws)
    return m.connections.get? ws
  match conn with
  | none => return
  | some c =>
    Coroutine.modify (·.cancelSender c)
    Coroutine.pause

def subscribeSseWithReplayIfAllowed (runId : String) (caller : Caller)
    (afterEventId : Option Text) : ManagerCoroutine (Option QueueId × List WorkflowEvent) := do
  let queue ← Coroutine.modifyGet newQueue
  Coroutine.locked do
    let m ← Coroutine.read
    match m.snapshots.get? runId with
    | none => return (none, [])
    | some snapshot =>
      if allows snapshot caller then
        let replay := m.replayEvents runId afterEventId
        Coroutine.modify (·.addSseSubscriber runId queue)
        return (some queue, replay)
      else return (none, [])

def unsubscribeSse (runId : String) (queue : QueueId) : ManagerCoroutine PUnit :=
  Coroutine.locked (Coroutine.modify (·.unsubscribeSse runId queue))

def enqueueAll (payload : Json) : List Ws → ManagerCoroutine (List Ws)
  | [] => return []
  | ws :: rest => do
    let delivered ← Coroutine.locked (Coroutine.modifyGet (·.enqueueText ws payload))
    let dead ← enqueueAll payload rest
    return if delivered then dead else ws :: dead

def publishEvent (e : WorkflowEvent) : ManagerCoroutine WorkflowEvent := do
  let (event, targets, sseTargets) ← Coroutine.locked (Coroutine.modifyGet (·.record e))
  Coroutine.modify fun m => sseTargets.foldl (fun m q => m.publishSseEvent event q) m
  let dead ← enqueueAll event.toDict targets
  if dead ≠ [] then
    Coroutine.locked (Coroutine.modify fun m => dead.foldl removeWs m)
  return event

/-- One turn of the sender task of a connection. `sendOk` is how the message that
it is sending ends. -/
def senderTurn (c : ConnId) (sendOk : Bool) : ManagerCoroutine PUnit := do
  let m ← Coroutine.read
  match m.states[c]? with
  | none => return
  | some state =>
    if state.leaves sendOk then
      Coroutine.modify (·.updateState c ConnectionState.close)
      Coroutine.locked (Coroutine.modify fun m =>
        if m.connections.get? state.ws = some c then m.removeWs state.ws else m)
    else
      Coroutine.modify (·.updateState c ConnectionState.advance)

/-- What the event loop can start: a call of the manager, a reader that takes an
event from its queue, or the next turn of a sender task. -/
inductive Call
  | registerRun (runId workflowName : String) (ownerSubject : Option String) (tenantId : String)
      (schemaVersion : Int)
  | connect (ws : Ws) (runId : String)
  | disconnect (ws : Ws)
  | subscribe (runId : String) (caller : Caller) (afterEventId : Option Text)
  | unsubscribe (runId : String) (queue : QueueId)
  | publish (e : WorkflowEvent)
  | take (queue : QueueId)
  | sender (c : ConnId) (sendOk : Bool)

def program : Call → ManagerCoroutine PUnit
  | .registerRun runId workflowName ownerSubject tenantId schemaVersion =>
    WsManager.registerRun runId workflowName ownerSubject tenantId schemaVersion
  | .connect ws runId => do
    let _ ← WsManager.connect ws runId
  | .disconnect ws => WsManager.disconnect ws
  | .subscribe runId caller afterEventId => do
    let _ ← subscribeSseWithReplayIfAllowed runId caller afterEventId
  | .unsubscribe runId queue => WsManager.unsubscribeSse runId queue
  | .publish e => do
    let _ ← publishEvent e
  | .take queue => Coroutine.modify (·.takeSse queue)
  | .sender c sendOk => senderTurn c sendOk

section Turns

theorem sections_enqueueAll (payload : Json) (targets : List Ws) :
    Coroutine.Sections false (enqueueAll payload targets) := by
  induction targets with
  | nil => rfl
  | cons ws rest ih =>
    refine sections_bind
      (sections_locked (plain_modifyGet _)) fun _ => ?_
    exact sections_bind ih fun _ => rfl

theorem sections_publishEvent (e : WorkflowEvent) : Coroutine.Sections false (publishEvent e) := by
  refine sections_bind
    (sections_locked (plain_modifyGet _)) fun _ => ?_
  refine sections_bind
    (sections_of_plain (plain_modify _)) fun _ => ?_
  refine sections_bind (sections_enqueueAll _ _) fun dead => ?_
  dsimp only
  split_ifs
  · exact sections_bind
      (sections_locked (plain_modify _)) fun _ => rfl
  · rfl

theorem sections_senderTurn (c : ConnId) (sendOk : Bool) :
    Coroutine.Sections false (senderTurn c sendOk) := by
  refine sections_bind (sections_of_plain plain_read) fun m => ?_
  cases m.states[c]? with
  | none => rfl
  | some state =>
    dsimp only
    split_ifs
    · refine sections_bind (sections_of_plain (plain_modify _))
        fun _ => ?_
      exact sections_locked (plain_modify _)
    · exact sections_of_plain (plain_modify _)

theorem sections_connect (ws : Ws) (runId : String) :
    Coroutine.Sections false (connect ws runId) := by
  refine sections_bind (sections_locked ?_) fun known => ?_
  · refine plain_bind plain_read fun m => ?_
    split_ifs
    · exact fun _ _ => trivial
    · trivial
  · cases known
    · rfl
    · exact sections_bind (sections_locked fun _ => trivial) fun _ => rfl

theorem sections_disconnect (ws : Ws) : Coroutine.Sections false (disconnect ws) := by
  refine sections_bind (sections_locked fun _ _ => trivial) fun conn => ?_
  cases conn with
  | none => rfl
  | some c => exact fun _ => ⟨rfl, rfl⟩

theorem sections_subscribe (runId : String) (caller : Caller) (afterEventId : Option Text) :
    Coroutine.Sections false (subscribeSseWithReplayIfAllowed runId caller afterEventId) := by
  refine sections_bind (sections_of_plain (plain_modifyGet _))
    fun queue => sections_locked ?_
  refine plain_bind plain_read fun m => ?_
  cases m.snapshots.get? runId with
  | none => trivial
  | some snapshot =>
    dsimp only
    split_ifs
    · exact fun _ => trivial
    · trivial

theorem sections_program (call : Call) : Coroutine.Sections false (program call) := by
  cases call with
  | registerRun => exact sections_locked (plain_modify _)
  | connect ws runId => exact sections_bind (sections_connect ws runId) fun _ => rfl
  | disconnect ws => exact sections_disconnect ws
  | subscribe runId caller afterEventId =>
    exact sections_bind (sections_subscribe runId caller afterEventId) fun _ => rfl
  | unsubscribe => exact sections_locked (plain_modify _)
  | publish e => exact sections_bind (sections_publishEvent e) fun _ => rfl
  | take => exact sections_of_plain (plain_modify _)
  | sender c sendOk => exact sections_senderTurn c sendOk

variable (m : WorkflowWSManager)

/-- `_enqueue_text` for one socket after the other, with the sockets it failed for. -/
def enqueueEach (payload : Json) : List Ws → WorkflowWSManager → List Ws × WorkflowWSManager
  | [], m => ([], m)
  | ws :: rest, m =>
    let (delivered, m) := m.enqueueText ws payload
    let (dead, m) := enqueueEach payload rest m
    (if delivered then dead else ws :: dead, m)

theorem segment_enqueueAll (payload : Json) (targets : List Ws) :
    (enqueueAll payload targets).segment m =
      (.finished (enqueueEach payload targets m).1, (enqueueEach payload targets m).2) := by
  induction targets generalizing m with
  | nil => rfl
  | cons ws rest ih => simp [enqueueAll, enqueueEach, ih]

variable (m : WorkflowWSManager)

def fanOut (e : WorkflowEvent) (queues : List QueueId) : WorkflowWSManager :=
  queues.foldl (fun m q => m.publishSseEvent e q) m

def published (e : WorkflowEvent) : WorkflowWSManager :=
  let sent := enqueueEach (m.assigned e).toDict (m.subscribers e.runId)
    (fanOut (m.record e).2 (m.assigned e) (m.sseSubscribers e.runId))
  if sent.1 = [] then sent.2 else sent.1.foldl removeWs sent.2

theorem record_fst (e : WorkflowEvent) :
    (m.record e).1 = (m.assigned e, m.subscribers e.runId, m.sseSubscribers e.runId) := rfl

theorem segment_publishEvent (e : WorkflowEvent) :
    (publishEvent e).segment m = (.finished (m.assigned e), published m e) := by
  simp only [publishEvent, segment_bind, segment_locked,
    segment_modifyGet, segment_modify, segment_enqueueAll, record_fst]
  rw [published, fanOut]
  by_cases h : (enqueueEach (m.assigned e).toDict (m.subscribers e.runId)
      (fanOut (m.record e).2 (m.assigned e) (m.sseSubscribers e.runId))).1 = []
  · rw [fanOut] at h
    simp [h]
  · rw [fanOut] at h
    simp [h]

theorem segment_connect (ws : Ws) (runId : String) :
    (connect ws runId).segment m =
      if runId ∈ m.snapshots.keys then
        (.finished true, (m.openConnection ws).addSubscription ws runId)
      else (.finished false, m) := by
  by_cases h : runId ∈ m.snapshots.keys <;> simp [connect, activeSubscriptions, h]

theorem segment_disconnect (ws : Ws) :
    (disconnect ws).segment m =
      match m.connections.get? ws with
      | none => (.finished ⟨⟩, m.removeWs ws)
      | some c => (.waiting (pure ⟨⟩), (m.removeWs ws).cancelSender c) := by
  simp only [disconnect, segment_bind, segment_locked, segment_read,
    segment_modify, segment_pure]
  cases m.connections.get? ws with
  | none => rfl
  | some c => rfl

def subscription (runId : String) (caller : Caller)
    (afterEventId : Option Text) : Option QueueId × List WorkflowEvent :=
  match m.snapshots.get? runId with
  | none => (none, [])
  | some snapshot =>
    if allows snapshot caller then (some m.queues.length, m.replayEvents runId afterEventId)
    else (none, [])

def effect : Call → WorkflowWSManager
  | .registerRun runId workflowName ownerSubject tenantId schemaVersion =>
    m.registerRun runId workflowName ownerSubject tenantId schemaVersion
  | .connect ws runId =>
    if runId ∈ m.snapshots.keys then (m.openConnection ws).addSubscription ws runId else m
  | .disconnect ws =>
    match m.connections.get? ws with
    | none => m.removeWs ws
    | some c => (m.removeWs ws).cancelSender c
  | .subscribe runId caller afterEventId =>
    match (subscription m runId caller afterEventId).1 with
    | none => m.newQueue.2
    | some queue => m.newQueue.2.addSseSubscriber runId queue
  | .unsubscribe runId queue => m.unsubscribeSse runId queue
  | .publish e => published m e
  | .take queue => m.takeSse queue
  | .sender c sendOk =>
    match m.states[c]? with
    | none => m
    | some state =>
      if state.leaves sendOk then
        let m := m.updateState c ConnectionState.close
        if m.connections.get? state.ws = some c then m.removeWs state.ws else m
      else m.updateState c ConnectionState.advance

theorem segment_subscribe (runId : String) (caller : Caller) (afterEventId : Option Text) :
    (subscribeSseWithReplayIfAllowed runId caller afterEventId).segment m =
      (.finished (subscription m runId caller afterEventId),
        effect m (.subscribe runId caller afterEventId)) := by
  simp only [subscribeSseWithReplayIfAllowed, subscription, effect, segment_bind,
    segment_modifyGet, segment_locked, segment_read]
  rw [show m.newQueue.2.snapshots = m.snapshots from rfl]
  cases m.snapshots.get? runId with
  | none => rfl
  | some snapshot =>
    dsimp only
    split_ifs <;> rfl

theorem segment_senderTurn (c : ConnId) (sendOk : Bool) :
    (senderTurn c sendOk).segment m = (.finished ⟨⟩, effect m (.sender c sendOk)) := by
  simp only [senderTurn, effect, segment_bind, segment_read]
  cases m.states[c]? with
  | none => rfl
  | some state =>
    dsimp only
    split_ifs <;> simp_all

theorem segment_program (call : Call) : ((program call).segment m).2 = effect m call := by
  cases call with
  | registerRun => rfl
  | connect ws runId =>
    simp only [program, segment_bind, segment_connect, effect]
    split_ifs <;> rfl
  | disconnect ws =>
    simp only [program, segment_disconnect, effect]
    cases m.connections.get? ws <;> rfl
  | subscribe runId caller afterEventId =>
    simp [program, segment_subscribe]
  | unsubscribe => rfl
  | publish e => simp [program, segment_publishEvent, effect]
  | take => rfl
  | sender c sendOk => simp only [program, segment_senderTurn]

theorem idle_program (call : Call) (k : ManagerCoroutine PUnit)
    (h : ((program call).segment m).1 = .waiting k) : Coroutine.Idle k := by
  cases call with
  | registerRun => cases h
  | connect ws runId =>
    simp only [program, segment_bind, segment_connect] at h
    split_ifs at h <;> cases h
  | disconnect ws =>
    simp only [program, segment_disconnect] at h
    cases hconn : m.connections.get? ws with
    | none =>
      rw [hconn] at h
      cases h
    | some c =>
      rw [hconn] at h
      obtain rfl := Outcome.waiting.inj h
      trivial
  | subscribe runId caller afterEventId => simp [program, segment_subscribe] at h
  | unsubscribe => cases h
  | publish e => simp [program, segment_publishEvent] at h
  | take => cases h
  | sender c sendOk => simp [program, segment_senderTurn] at h

def history (choices : List (Choice Call)) : History.Run WorkflowWSManager Call :=
  sharedRun (History.run (schedule program) ⟨⟨m, false⟩, []⟩ choices)

theorem history_eq_atomic (choices : List (Choice Call)) :
    history m choices = History.run (atomic program) m (starts choices) :=
  run_eq_atomic program sections_program (fun call s k => idle_program s call k) m choices

end Turns

section Specs

variable {m : WorkflowWSManager}

variable {α : Type}

theorem mem_addTo [DecidableEq α] {x y : α} : y ∈ addTo x xs ↔ y ∈ xs ∨ y = x := by
  rw [addTo]
  split_ifs with h
  · exact ⟨.inl, fun hy => hy.elim id fun hyx => hyx ▸ h⟩
  · simp

theorem nodup_addTo [DecidableEq α] {x : α} (h : xs.Nodup) : (addTo x xs).Nodup := by
  rw [addTo]
  split_ifs with hx
  · exact h
  · exact nodup_append.mpr ⟨h, nodup_singleton x,
      fun a ha b hb hab => hx (mem_singleton.mp hb ▸ hab ▸ ha)⟩

theorem getD_discardAt [DecidableEq α] (d : Dict String (List α)) (key : String) (x : α)
    (key' : String) : (discardAt d key x).getD key' [] =
      if key' = key then (d.getD key' []).filter (fun y => decide (y ≠ x)) else d.getD key' [] := by
  rw [discardAt]
  cases hget : d.get? key with
  | none =>
    split_ifs with hkey
    · subst hkey
      simp [Dict.getD, hget]
    · rfl
  | some xs =>
    have hxs : d.getD key [] = xs := by rw [Dict.getD, hget]; rfl
    dsimp only
    by_cases hempty : xs.filter (fun y => decide (y ≠ x)) = []
    · rw [if_pos hempty, Dict.getD_erase]
      split_ifs with hkey
      · rw [hkey, hxs, hempty]
      · rfl
    · rw [if_neg hempty, Dict.getD_set]
      split_ifs with hkey
      · rw [hkey, hxs]
      · rfl

theorem subscribers_removeWs (m : WorkflowWSManager) (ws : Ws) (run : String) :
    (m.removeWs ws).subscribers run =
      if run ∈ m.runsOf ws then (m.subscribers run).filter (fun w => decide (w ≠ ws))
      else m.subscribers run := by
  have key : ∀ (runs : List String) (d : Dict String (List Ws)),
      (runs.foldl (fun d runId => discardAt d runId ws) d).getD run [] =
        if run ∈ runs then (d.getD run []).filter (fun w => decide (w ≠ ws))
        else d.getD run [] := by
    intro runs
    induction runs with
    | nil => simp
    | cons runId runs ih =>
      intro d
      rw [foldl_cons, ih, getD_discardAt]
      by_cases h : run = runId
      · simp [h, List.filter_filter]
      · simp [h]
  exact key _ _

theorem fanOut_eq (e : WorkflowEvent) (qs : List QueueId) (hqs : qs.Nodup)
    (m : WorkflowWSManager) :
    ∃ queues, fanOut m e qs = { m with queues := queues } ∧
      ∀ q, queues[q]? = (m.queues[q]?).map fun queue =>
        if q ∈ qs then queue.put m.sseQueueMaxsize e else queue := by
  induction qs generalizing m with
  | nil => exact ⟨m.queues, rfl, fun q => by simp⟩
  | cons q₀ qs ih =>
    rw [nodup_cons] at hqs
    obtain ⟨queues, heq, hqueues⟩ := ih hqs.2 (m.publishSseEvent e q₀)
    refine ⟨queues, by rw [fanOut, foldl_cons, ← fanOut, heq]; rfl, fun q => ?_⟩
    rw [hqueues q, publishSseEvent, getElem?_modify, Option.map_eq_map, Option.map_map]
    refine congrArg (fun f => Option.map f m.queues[q]?) (funext fun queue => ?_)
    by_cases hq : q₀ = q
    · subst hq
      simp [hqs.1]
    · simp [hq, Ne.symm hq]

theorem messages_push (st : ConnectionState) (payload : Json) :
    ConnectionState.messages { st with queue := st.queue ++ [payload] } =
      st.messages ++ [payload] := by
  simp [ConnectionState.messages]

theorem next_live (st : ConnectionState) :
    st.next.sender ≠ .done ∧ st.next.ws = st.ws ∧ st.next.cancelled = st.cancelled ∧
      st.next.messages = st.sent ++ st.queue := by
  cases hq : st.queue <;> simp [ConnectionState.next, ConnectionState.messages, hq]

theorem advance_live (st : ConnectionState) (h : st.sender ≠ .done) :
    st.advance.sender ≠ .done ∧ st.advance.ws = st.ws ∧ st.advance.cancelled = st.cancelled ∧
      st.advance.messages = st.messages := by
  rw [ConnectionState.advance]
  cases hs : st.sender with
  | done => exact absurd hs h
  | waiting =>
    obtain ⟨hsender, hws, hcancelled, hmessages⟩ := next_live st
    exact ⟨hsender, hws, hcancelled, hmessages.trans (by simp [ConnectionState.messages, hs])⟩
  | sending payload =>
    obtain ⟨hsender, hws, hcancelled, hmessages⟩ :=
      next_live { st with sent := st.sent ++ [payload] }
    refine ⟨hsender, hws, hcancelled, hmessages.trans ?_⟩
    simp [ConnectionState.messages, hs]

structure Live (m : WorkflowWSManager) (ws : Ws) (c : ConnId) (messages : List Json) : Prop where
  conn : m.connections.get? ws = some c
  state : ∃ st, m.states[c]? = some st ∧ st.ws = ws ∧ st.cancelled = false ∧
    st.sender ≠ .done ∧ st.messages = messages

theorem Live.eq_of_eq (h : Live m ws c messages) (h' : Live m ws' c messages') : ws = ws' := by
  obtain ⟨_, st, hst, rfl, _⟩ := h
  obtain ⟨_, st', hst', rfl, _⟩ := h'
  rw [hst, some_inj] at hst'
  rw [hst']

theorem enqueueEach_eq (payload : Json) (targets : List Ws) (hnd : targets.Nodup)
    (m : WorkflowWSManager) (hlive : ∀ ws ∈ targets, ∃ c messages, Live m ws c messages) :
    ∃ states, enqueueEach payload targets m = ([], { m with states := states }) ∧
      ∀ c, states[c]? = (m.states[c]?).map fun st =>
        if st.ws ∈ targets ∧ m.connections.get? st.ws = some c then
          { st with queue := st.queue ++ [payload] }
        else st := by
  induction targets generalizing m with
  | nil => exact ⟨m.states, rfl, fun c => by simp⟩
  | cons ws rest ih =>
    rw [nodup_cons] at hnd
    obtain ⟨c₀, messages, hconn, st₀, hst₀, hws₀, _, hsender, _⟩ :=
      hlive ws mem_cons_self
    have henq : m.enqueueText ws payload = (true, m.updateState c₀ fun state =>
        { state with queue := state.queue ++ [payload] }) := by
      rw [enqueueText, hconn]
      dsimp only
      rw [hst₀]
      cases hs : st₀.sender with
      | done => exact absurd hs hsender
      | waiting => simp [hs]
      | sending p => simp [hs]
    have hother : ∀ ws' ∈ rest, ∃ c messages, Live (m.updateState c₀ fun state =>
        { state with queue := state.queue ++ [payload] }) ws' c messages := by
      intro ws' hws'
      obtain ⟨c, messages', hl⟩ := hlive ws' (mem_cons_of_mem ws hws')
      have hne : c₀ ≠ c := by
        rintro rfl
        have : ws = ws' :=
          Live.eq_of_eq ⟨hconn, st₀, hst₀, hws₀, ‹_›, hsender, ‹_›⟩ hl
        exact hnd.1 (this ▸ hws')
      obtain ⟨hc, st, hst, hrest⟩ := hl
      exact ⟨c, messages', hc, st, by simp [updateState, hne, hst], hrest⟩
    obtain ⟨states, heq, hstates⟩ := ih hnd.2 _ hother
    refine ⟨states, by simp only [enqueueEach, henq, heq]; rfl, fun c => ?_⟩
    rw [hstates c, updateState, getElem?_modify, Option.map_eq_map, Option.map_map]
    cases hst : m.states[c]? with
    | none => rfl
    | some st =>
      by_cases hc : c₀ = c
      · subst hc
        obtain rfl : st₀ = st := some.inj (hst₀.symm.trans hst)
        simp [hws₀, hnd.1, hconn]
      · have hiff : st.ws = ws → m.connections.get? st.ws ≠ some c := by
          rintro rfl h
          exact hc (some.inj (hconn.symm.trans h))
        by_cases hw : st.ws = ws
        · have := hiff hw
          simp [hc, this]
        · simp [hc, hw]

end Specs

section Sockets

structure Session where
  runs : List String := []
  received : List WorkflowEvent := []

def Session.next (ws : Ws) (session : Session) (e : History.Event WorkflowWSManager Call) :
    Session :=
  match e.op with
  | .connect ws' runId =>
    if ws = ws' ∧ runId ∈ e.before.snapshots.keys then
      { session with runs := addTo runId session.runs }
    else session
  | .disconnect ws' => if ws = ws' then {} else session
  | .publish event =>
    if event.runId ∈ session.runs then
      { session with received := session.received ++ [e.before.assigned event] }
    else session
  | .sender c sendOk =>
    match e.before.states[c]? with
    | none => session
    | some state =>
      if state.leaves sendOk ∧ e.before.connections.get? ws = some c then {} else session
  | _ => session

def session (ws : Ws) (events : List (History.Event WorkflowWSManager Call)) : Session :=
  events.foldl (Session.next ws) {}

structure Sockets (m : WorkflowWSManager) (sessions : Ws → Session) : Prop where
  nodup : ∀ runId, (m.subscribers runId).Nodup
  runs : ∀ ws, m.runsOf ws = (sessions ws).runs
  subscribed : ∀ ws runId, ws ∈ m.subscribers runId ↔ runId ∈ (sessions ws).runs
  conn : ∀ ws, (m.connections.get? ws = none ∧ sessions ws = {}) ∨
    ∃ c, Live m ws c ((sessions ws).received.map WorkflowEvent.toDict)

section

variable (h : Sockets m sessions)
include h

theorem Sockets.live (hc : m.connections.get? ws = some c) :
    Live m ws c ((sessions ws).received.map WorkflowEvent.toDict) := by
  rcases h.conn ws with ⟨hnone, _⟩ | ⟨c', hl⟩
  · rw [hnone] at hc
    cases hc
  · obtain rfl := some.inj (hl.conn.symm.trans hc)
    exact hl

theorem Sockets.live_of_subscribed
    (hsub : ws ∈ m.subscribers runId) : ∃ c messages, Live m ws c messages := by
  rcases h.conn ws with ⟨_, hempty⟩ | ⟨c, hl⟩
  · rw [h.subscribed, hempty] at hsub
    cases hsub
  · exact ⟨c, _, hl⟩

theorem Sockets.conn_injective
    (hc : m.connections.get? ws = some c) (hc' : m.connections.get? ws' = some c) : ws = ws' :=
  Live.eq_of_eq (h.live hc) (h.live hc')

theorem Sockets.congr (hsubs : m'.subscriptions = m.subscriptions)
    (hrev : m'.reverse = m.reverse) (hconns : m'.connections = m.connections)
    (hstates : ∀ ws c, m.connections.get? ws = some c → m'.states[c]? = m.states[c]?) :
    Sockets m' sessions where
  nodup runId := by
    rw [subscribers, hsubs]
    exact h.nodup runId
  runs ws := by
    rw [runsOf, hrev]
    exact h.runs ws
  subscribed ws runId := by
    rw [subscribers, hsubs]
    exact h.subscribed ws runId
  conn ws := by
    rw [hconns]
    refine (h.conn ws).imp_right fun ⟨c, hl⟩ => ⟨c, hconns ▸ hl.conn, ?_⟩
    rw [hstates ws c hl.conn]
    exact hl.state

theorem Sockets.updateState
    {f : ConnectionState → ConnectionState} (hc : ∀ ws, m.connections.get? ws ≠ some c) :
    Sockets (m.updateState c f) sessions := by
  refine h.congr rfl rfl rfl fun ws c' hc' => ?_
  have hne : c ≠ c' := fun heq => hc ws (heq ▸ hc')
  simp [WorkflowWSManager.updateState, hne]

theorem Sockets.removeWs (m' : WorkflowWSManager) (w : Ws)
    (hsubs : m'.subscriptions = m.subscriptions) (hrev : m'.reverse = m.reverse)
    (hconns : m'.connections = m.connections)
    (hstates : ∀ ws c, ws ≠ w → m.connections.get? ws = some c → m'.states[c]? = m.states[c]?) :
    Sockets (m'.removeWs w) fun ws => if ws = w then {} else sessions ws := by
  have hrem : ∀ runId, (m'.removeWs w).subscribers runId =
      if runId ∈ m.runsOf w then (m.subscribers runId).filter (fun ws => decide (ws ≠ w))
      else m.subscribers runId := by
    intro runId
    rw [subscribers_removeWs, runsOf, hrev, subscribers, hsubs]
    rfl
  refine ⟨fun runId => ?_, fun ws => ?_, fun ws runId => ?_, fun ws => ?_⟩
  · rw [hrem]
    split_ifs
    · exact (h.nodup runId).filter _
    · exact h.nodup runId
  · rw [WorkflowWSManager.removeWs, runsOf, Dict.getD_erase, hrev]
    split_ifs
    · rfl
    · exact h.runs ws
  · rw [hrem, h.runs w]
    by_cases hw : ws = w
    · subst hw
      by_cases hrun : runId ∈ (sessions ws).runs <;> simp [hrun, h.subscribed]
    · by_cases hrun : runId ∈ (sessions w).runs <;> simp [hrun, hw, h.subscribed]
  · rw [WorkflowWSManager.removeWs]
    by_cases hw : ws = w
    · exact .inl ⟨by simp [Dict.get?_erase, hw], if_pos hw⟩
    · rw [if_neg hw, Dict.get?_erase, if_neg hw, hconns]
      refine (h.conn ws).imp_right fun ⟨c, hl⟩ => ⟨c, ?_, ?_⟩
      · simpa [Dict.get?_erase, hw, hconns] using hl.conn
      · rw [hstates ws c hw hl.conn]
        exact hl.state

theorem Sockets.openConnection (ws : Ws) :
    Sockets (m.openConnection ws) sessions ∧
      ∃ c, (m.openConnection ws).connections.get? ws = some c := by
  rw [WorkflowWSManager.openConnection]
  cases hc : m.connections.get? ws with
  | some c => exact ⟨h, c, hc⟩
  | none =>
    refine ⟨⟨h.nodup, h.runs, h.subscribed, fun ws' => ?_⟩, m.states.length, by simp⟩
    by_cases hws : ws' = ws
    · subst hws
      have hempty : sessions ws' = {} := by
        rcases h.conn ws' with ⟨_, hempty⟩ | ⟨c, hl⟩
        · exact hempty
        · exact absurd (hc.symm.trans hl.conn) (by simp)
      exact .inr ⟨m.states.length, by simp, { ws := ws' }, by simp, rfl, rfl, by simp,
        by simp [hempty, ConnectionState.messages]⟩
    · refine (h.conn ws').imp (fun hnone => by simpa [hws] using hnone) fun ⟨c, hl⟩ => ?_
      obtain ⟨hconn, st, hst, hrest⟩ := hl
      refine ⟨c, by simpa [hws] using hconn, st, ?_, hrest⟩
      exact (getElem?_append_left (List.getElem?_eq_some_iff.mp hst).1).trans hst

theorem Sockets.connect (ws : Ws) (runId : String) :
    Sockets ((m.openConnection ws).addSubscription ws runId) fun ws' =>
      if ws' = ws then { sessions ws with runs := addTo runId (sessions ws).runs }
      else sessions ws' := by
  obtain ⟨ho, c, hc⟩ := h.openConnection ws
  have hsubs : ∀ run, ((m.openConnection ws).addSubscription ws runId).subscribers run =
      if run = runId then addTo ws ((m.openConnection ws).subscribers run)
      else (m.openConnection ws).subscribers run := by
    intro run
    rw [addSubscription, subscribers, Dict.getD_set]
    by_cases hrun : run = runId
    · rw [if_pos hrun, if_pos hrun, hrun]
    · rw [if_neg hrun, if_neg hrun, subscribers]
  refine ⟨fun run => ?_, fun ws' => ?_, fun ws' run => ?_, fun ws' => ?_⟩
  · rw [hsubs]
    split_ifs
    · exact nodup_addTo (ho.nodup run)
    · exact ho.nodup run
  · rw [addSubscription, runsOf, Dict.getD_set, ho.runs ws]
    split_ifs
    · rfl
    · exact ho.runs ws'
  · rw [hsubs]
    by_cases hws : ws' = ws
    · subst hws
      by_cases hrun : run = runId <;> simp [hrun, mem_addTo, ho.subscribed]
    · by_cases hrun : run = runId <;> simp [hrun, hws, mem_addTo, ho.subscribed]
  · by_cases hws : ws' = ws
    · subst hws
      obtain ⟨hconn, hstate⟩ := ho.live hc
      rw [if_pos rfl]
      exact .inr ⟨c, hconn, hstate⟩
    · rw [if_neg hws]
      exact (ho.conn ws').imp_right fun ⟨c, hconn, hstate⟩ => ⟨c, hconn, hstate⟩

theorem Sockets.advance (c : ConnId) :
    Sockets (m.updateState c ConnectionState.advance) sessions where
  nodup := h.nodup
  runs := h.runs
  subscribed := h.subscribed
  conn ws := by
    refine (h.conn ws).imp_right fun ⟨c', hconn, st, hst', hws, hcancelled, hsender, hmsg⟩ => ?_
    by_cases hc : c = c'
    · subst hc
      obtain ⟨hsender', hws', hcancelled', hmsg'⟩ := advance_live st hsender
      exact ⟨c, hconn, st.advance, by simp [WorkflowWSManager.updateState, hst'], hws'.trans hws,
        hcancelled'.trans hcancelled, hsender', hmsg'.trans hmsg⟩
    · exact ⟨c', hconn, st, by simp [WorkflowWSManager.updateState, hc, hst'], hws, hcancelled,
        hsender, hmsg⟩

theorem published_eq (e : WorkflowEvent)
    (hq : (m.sseSubscribers e.runId).Nodup) :
    ∃ queues states, (enqueueEach (m.assigned e).toDict (m.subscribers e.runId)
        (fanOut (m.record e).2 (m.assigned e) (m.sseSubscribers e.runId))).1 = [] ∧
      published m e = { (m.record e).2 with queues := queues, states := states } ∧
      (∀ q, queues[q]? = (m.queues[q]?).map fun queue =>
        if q ∈ m.sseSubscribers e.runId then queue.put m.sseQueueMaxsize (m.assigned e)
        else queue) ∧
      ∀ c, states[c]? = (m.states[c]?).map fun st =>
        if st.ws ∈ m.subscribers e.runId ∧ m.connections.get? st.ws = some c then
          { st with queue := st.queue ++ [(m.assigned e).toDict] }
        else st := by
  obtain ⟨queues, hfan, hqueues⟩ := fanOut_eq (m.assigned e) (m.sseSubscribers e.runId) hq
    (m.record e).2
  obtain ⟨states, henq, hstates⟩ := enqueueEach_eq (m.assigned e).toDict (m.subscribers e.runId)
    (h.nodup e.runId) (fanOut (m.record e).2 (m.assigned e) (m.sseSubscribers e.runId))
    fun ws hws => by
      obtain ⟨c, messages, hconn, hstate⟩ := h.live_of_subscribed hws
      exact ⟨c, messages, by rw [hfan]; exact hconn, by rw [hfan]; exact hstate⟩
  refine ⟨queues, states, by rw [henq], ?_, hqueues, fun c => ?_⟩
  · rw [published, henq, if_pos rfl, hfan]
  · rw [hstates c, hfan]
    rfl

theorem Sockets.publish (e : WorkflowEvent)
    (hq : (m.sseSubscribers e.runId).Nodup) :
    Sockets (published m e) fun ws =>
      if e.runId ∈ (sessions ws).runs then
        { sessions ws with received := (sessions ws).received ++ [m.assigned e] }
      else sessions ws := by
  obtain ⟨queues, states, -, heq, -, hstates⟩ := published_eq h e hq
  rw [heq]
  refine ⟨h.nodup, fun ws => ?_, fun ws run => ?_, fun ws => ?_⟩
  · rw [show (if e.runId ∈ (sessions ws).runs then
        { sessions ws with received := (sessions ws).received ++ [m.assigned e] }
        else sessions ws).runs = (sessions ws).runs by split_ifs <;> rfl]
    exact h.runs ws
  · rw [show (if e.runId ∈ (sessions ws).runs then
        { sessions ws with received := (sessions ws).received ++ [m.assigned e] }
        else sessions ws).runs = (sessions ws).runs by split_ifs <;> rfl]
    exact h.subscribed ws run
  · rcases h.conn ws with ⟨hnone, hempty⟩ | ⟨c, hconn, st, hst, hws, hcancelled, hsender, hmsg⟩
    · exact .inl ⟨hnone, by simp [hempty]⟩
    · refine .inr ⟨c, hconn, ?_⟩
      dsimp only
      by_cases hrun : e.runId ∈ (sessions ws).runs
      · have hsub : st.ws ∈ m.subscribers e.runId := by rwa [hws, h.subscribed]
        refine ⟨_, (hstates c).trans (by rw [hst, map_some]), ?_⟩
        rw [if_pos ⟨hsub, hws ▸ hconn⟩, if_pos hrun]
        exact ⟨hws, hcancelled, hsender, by rw [messages_push, hmsg]; simp⟩
      · have hsub : st.ws ∉ m.subscribers e.runId := by rwa [hws, h.subscribed]
        refine ⟨_, (hstates c).trans (by rw [hst, map_some]), ?_⟩
        rw [if_neg fun hc => hsub hc.1, if_neg hrun]
        exact ⟨hws, hcancelled, hsender, hmsg⟩

theorem Sockets.effect (call : Call)
    (hq : ∀ runId, (m.sseSubscribers runId).Nodup) :
    Sockets (WsManager.effect m call) fun ws =>
      (sessions ws).next ws ⟨m, call, WsManager.effect m call⟩ := by
  cases call with
  | registerRun => exact h.congr rfl rfl rfl fun _ _ _ => rfl
  | connect ws runId =>
    simp only [Session.next, WsManager.effect]
    by_cases hrun : runId ∈ m.snapshots.keys
    · rw [if_pos hrun]
      convert h.connect ws runId using 2 with ws'
      by_cases hws : ws' = ws <;> simp [hws, hrun]
    · simpa only [hrun, if_false, and_false] using h
  | disconnect ws =>
    have hrem := h.removeWs m ws rfl rfl rfl fun _ _ _ _ => rfl
    simp only [Session.next, WsManager.effect]
    cases hc : m.connections.get? ws with
    | none => exact hrem
    | some c =>
      refine hrem.updateState fun ws' hc' => ?_
      rw [WorkflowWSManager.removeWs, Dict.get?_erase] at hc'
      split_ifs at hc' with hws
      exact hws (h.conn_injective hc' hc)
  | subscribe runId caller afterEventId =>
    rw [WsManager.effect]
    cases (subscription m runId caller afterEventId).1 with
    | none => exact h.congr rfl rfl rfl fun _ _ _ => rfl
    | some queue => exact h.congr rfl rfl rfl fun _ _ _ => rfl
  | unsubscribe => exact h.congr rfl rfl rfl fun _ _ _ => rfl
  | publish e => exact h.publish e (hq e.runId)
  | take queue => exact h.congr rfl rfl rfl fun _ _ _ => rfl
  | sender c sendOk =>
    simp only [Session.next, WsManager.effect]
    cases hst : m.states[c]? with
    | none => exact h
    | some state =>
      dsimp only
      by_cases hl : state.leaves sendOk = true
      · rw [if_pos hl]
        rw [show (m.updateState c ConnectionState.close).connections = m.connections from rfl]
        by_cases hc : m.connections.get? state.ws = some c
        · rw [if_pos hc]
          convert h.removeWs (m.updateState c ConnectionState.close) state.ws
            rfl rfl rfl ?_ using 2 with ws
          · by_cases hws : ws = state.ws
            · simp [hws, hl, hc]
            · have : m.connections.get? ws ≠ some c := fun hc' => hws (h.conn_injective hc' hc)
              simp [hws, this]
          · intro ws c' hws hc'
            have hne : c ≠ c' := fun heq => hws (h.conn_injective (heq ▸ hc') hc)
            simp [WorkflowWSManager.updateState, hne]
        · have hdead : ∀ ws, m.connections.get? ws ≠ some c := by
            intro ws hc'
            obtain ⟨_, st, hst', hws, _⟩ := h.live hc'
            obtain rfl := some.inj (hst.symm.trans hst')
            exact hc (hws ▸ hc')
          rw [if_neg hc]
          simpa only [hdead, and_false, if_false] using h.updateState hdead
      · simpa [hl] using h.advance c

end

end Sockets

section Log

def publishedIn (runId : String) (events : List (History.Event WorkflowWSManager Call)) :
    List WorkflowEvent :=
  events.filterMap fun e =>
    match e.op with
    | .publish event => if event.runId = runId then some (e.before.assigned event) else none
    | _ => none

def lastEventId (m : WorkflowWSManager) (runId : String) : ℕ :=
  (m.snapshots.get? runId).elim 0 (·.lastEventId)

/-- The snapshot counts the published events, their ids number them, and the
buffer keeps the last of them. -/
structure RunLog (m : WorkflowWSManager) (runId : String) (log : List WorkflowEvent) : Prop where
  last : lastEventId m runId = log.length
  ids : ∀ i (h : i < log.length), log[i].eventId = some (Text.ofNat (i + 1))
  buffer : m.replayBuffer runId = log.drop (log.length - m.sseReplayBufferSize)

variable {m m' : WorkflowWSManager} {runId : String}


theorem RunLog.congr (h : RunLog m runId log) (hlast : lastEventId m' runId = lastEventId m runId)
    (hbuffer : m'.replayBuffer runId = m.replayBuffer runId)
    (hsize : m'.sseReplayBufferSize = m.sseReplayBufferSize) : RunLog m' runId log :=
  ⟨hlast.trans h.last, h.ids, by rw [hbuffer, hsize, h.buffer]⟩

theorem lastEventId_snapshotFor (m : WorkflowWSManager) (e : WorkflowEvent) :
    (m.snapshotFor e).lastEventId = lastEventId m e.runId := by
  rw [snapshotFor, lastEventId, Dict.getD]
  cases m.snapshots.get? e.runId <;> rfl

theorem drop_appendBounded (size : ℕ) (e : WorkflowEvent) :
    appendBounded size (log.drop (log.length - size)) e =
      (log ++ [e]).drop (log.length + 1 - size) := by
  rw [appendBounded, ← drop_append_of_le_length (by omega), drop_drop, length_drop]
  congr 1
  omega

theorem RunLog.record (h : RunLog m runId log) (e : WorkflowEvent) :
    RunLog (m.record e).2 runId (log ++ if e.runId = runId then [m.assigned e] else []) := by
  by_cases hrun : e.runId = runId
  · subst hrun
    rw [if_pos rfl]
    refine ⟨?_, fun i hi => ?_, ?_⟩
    · rw [length_append, ← h.last, ← lastEventId_snapshotFor m e]
      simp [lastEventId, WorkflowWSManager.record]
    · rw [getElem_append]
      split_ifs with hlt
      · exact h.ids i hlt
      · obtain rfl : i = log.length := by
          rw [length_append, length_singleton] at hi
          omega
        simp [assigned, lastEventId_snapshotFor, h.last]
    · rw [length_append, length_singleton, ← drop_appendBounded]
      simp [WorkflowWSManager.record, replayBuffer, ← h.buffer]
  · rw [if_neg hrun, append_nil]
    refine h.congr ?_ ?_ rfl
    · simp [lastEventId, WorkflowWSManager.record, Ne.symm hrun]
    · simp [WorkflowWSManager.record, replayBuffer, Ne.symm hrun]

def QueuesOk (m : WorkflowWSManager) : Prop :=
  ∀ runId, (m.sseSubscribers runId).Nodup ∧ ∀ q ∈ m.sseSubscribers runId, q < m.queues.length

def Call.onSockets : Call → Bool
  | .connect _ _ | .disconnect _ | .sender _ _ => true
  | _ => false

theorem effect_onSockets (m : WorkflowWSManager) (h : call.onSockets = true) :
    ∃ subscriptions reverse connections states, effect m call =
      { m with
        subscriptions := subscriptions
        reverse := reverse
        connections := connections
        states := states } := by
  cases call with
  | connect ws runId =>
    rw [effect]
    split_ifs
    · rw [addSubscription, openConnection]
      cases m.connections.get? ws <;> exact ⟨_, _, _, _, rfl⟩
    · exact ⟨_, _, _, _, rfl⟩
  | disconnect ws =>
    rw [effect]
    cases m.connections.get? ws <;> exact ⟨_, _, _, _, rfl⟩
  | sender c sendOk =>
    rw [effect]
    cases m.states[c]? with
    | none => exact ⟨_, _, _, _, rfl⟩
    | some state =>
      dsimp only
      split_ifs <;> exact ⟨_, _, _, _, rfl⟩
  | _ => cases h

theorem lastEventId_registerRun (workflowName : String) (ownerSubject : Option String)
    (tenantId : String) (schemaVersion : Int) (run : String) :
    lastEventId (m.registerRun runId workflowName ownerSubject tenantId schemaVersion) run =
      lastEventId m run := by
  rw [lastEventId, lastEventId, WorkflowWSManager.registerRun, Dict.get?_set]
  by_cases hrun : run = runId
  · subst hrun
    rw [if_pos rfl, Dict.getD]
    cases m.snapshots.get? run <;> rfl
  · rw [if_neg hrun]

theorem RunLog.effect (h : RunLog m runId log) (hs : Sockets m sessions) (hq : QueuesOk m)
    (call : Call) :
    RunLog (WsManager.effect m call) runId
      (log ++ publishedIn runId [⟨m, call, WsManager.effect m call⟩]) := by
  by_cases hcall : call.onSockets = true
  · obtain ⟨_, _, _, _, heq⟩ := effect_onSockets m hcall
    have hnone : publishedIn runId [⟨m, call, WsManager.effect m call⟩] = [] := by
      cases call <;> first | rfl | cases hcall
    rw [hnone, append_nil, heq]
    exact h.congr rfl rfl rfl
  · cases call with
    | connect | disconnect | sender => exact absurd rfl hcall
    | registerRun run workflowName ownerSubject tenantId schemaVersion =>
      rw [show publishedIn runId _ = [] from rfl, append_nil]
      refine h.congr (lastEventId_registerRun _ _ _ _ _) ?_ rfl
      rw [WsManager.effect, replayBuffer, WorkflowWSManager.registerRun, Dict.getD_set]
      split_ifs with hrun
      · rw [hrun]
      · rfl
    | subscribe run caller afterEventId =>
      rw [show publishedIn runId _ = [] from rfl, append_nil, WsManager.effect]
      cases (subscription m run caller afterEventId).1 <;> exact h.congr rfl rfl rfl
    | unsubscribe run queue =>
      rw [show publishedIn runId _ = [] from rfl, append_nil]
      exact h.congr rfl rfl rfl
    | take queue =>
      rw [show publishedIn runId _ = [] from rfl, append_nil]
      exact h.congr rfl rfl rfl
    | publish e =>
      obtain ⟨_, _, -, heq, -⟩ := published_eq hs e (hq e.runId).1
      rw [show publishedIn runId [⟨m, .publish e, WsManager.effect m (.publish e)⟩] =
        if e.runId = runId then [m.assigned e] else [] by
          by_cases hrun : e.runId = runId <;> simp [publishedIn, hrun], WsManager.effect, heq]
      exact (h.record e).congr rfl rfl rfl

end Log

section Queues

variable {m : WorkflowWSManager} {runId : String} {q : QueueId}

theorem put_of_dropped {queue : SseQueue} {maxsize : ℕ} {e : WorkflowEvent}
    (h : (queue.put maxsize e).dropped = []) :
    queue.dropped = [] ∧ (queue.put maxsize e).delivered = queue.delivered ∧
      (queue.put maxsize e).items = queue.items ++ [e] := by
  rw [SseQueue.put] at h ⊢
  split_ifs at h ⊢
  · exact ⟨h, rfl, rfl⟩
  · obtain ⟨hdropped, hhead⟩ := append_eq_nil_iff.mp h
    cases hitems : queue.items with
    | nil => exact ⟨hdropped, rfl, by simp⟩
    | cons e' items => simp [hitems] at hhead

theorem sseSubscribers_unsubscribeSse (m : WorkflowWSManager) (run : String) (queue : QueueId)
    (run' : String) :
    (m.unsubscribeSse run queue).sseSubscribers run' =
      if run' = run then (m.sseSubscribers run').filter (fun q => decide (q ≠ queue))
      else m.sseSubscribers run' :=
  getD_discardAt m.sseSubscriptions run queue run'

theorem sseSubscribers_addSseSubscriber (m : WorkflowWSManager) (run : String) (queue : QueueId)
    (run' : String) :
    (m.addSseSubscriber run queue).sseSubscribers run' =
      if run' = run then addTo queue (m.sseSubscribers run') else m.sseSubscribers run' := by
  rw [addSseSubscriber, sseSubscribers, Dict.getD_set]
  by_cases hrun : run' = run
  · rw [if_pos hrun, if_pos hrun, hrun]
  · rw [if_neg hrun, if_neg hrun, sseSubscribers]

variable {run : String}

theorem subscription_fst (h : (subscription m run caller afterEventId).1 = some q) :
    q = m.queues.length := by
  rw [subscription] at h
  split at h
  · cases h
  · split_ifs at h
    exact (some.inj h).symm

theorem replay_of_subscription (h : subscription m run caller afterEventId = (some q, replay)) :
    m.replayEvents run afterEventId = replay := by
  rw [subscription] at h
  split at h
  · cases h
  · split_ifs at h
    · exact (Prod.mk.inj h).2
    · cases h

theorem QueuesOk.effect (h : QueuesOk m) (hs : Sockets m sessions) (call : Call) :
    QueuesOk (WsManager.effect m call) := by
  by_cases hcall : call.onSockets = true
  · obtain ⟨_, _, _, _, heq⟩ := effect_onSockets m hcall
    rw [heq]
    exact h
  · cases call with
    | connect | disconnect | sender => exact absurd rfl hcall
    | registerRun => exact h
    | subscribe run caller afterEventId =>
      have hnew : QueuesOk m.newQueue.2 := fun run' =>
        ⟨(h run').1, fun q hq => by simpa [newQueue] using Nat.lt_succ_of_lt ((h run').2 q hq)⟩
      rw [WsManager.effect]
      cases hsub : (subscription m run caller afterEventId).1 with
      | none => exact hnew
      | some queue =>
        obtain rfl := subscription_fst hsub
        intro run'
        dsimp only
        rw [sseSubscribers_addSseSubscriber]
        split_ifs
        · refine ⟨nodup_addTo (hnew run').1, fun q hq => ?_⟩
          rcases mem_addTo.mp hq with hq | rfl
          · exact (hnew run').2 q hq
          · simp [addSseSubscriber, newQueue]
        · exact hnew run'
    | unsubscribe run queue =>
      intro run'
      rw [WsManager.effect, sseSubscribers_unsubscribeSse]
      split_ifs
      · exact ⟨(h run').1.filter _, fun q hq => (h run').2 q (mem_of_mem_filter hq)⟩
      · exact h run'
    | take queue => exact fun run' => ⟨(h run').1, fun q hq => by
        simpa [WsManager.effect, takeSse] using (h run').2 q hq⟩
    | publish e =>
      obtain ⟨queues, _, -, heq, hqueues, -⟩ := published_eq hs e (h e.runId).1
      rw [WsManager.effect, heq]
      refine fun run' => ⟨(h run').1, fun q hq => ?_⟩
      have hlt := (h run').2 q hq
      by_contra hge
      have := hqueues q
      rw [getElem?_eq_none (by exact Nat.le_of_not_lt hge),
        getElem?_eq_getElem hlt] at this
      cases this

/-- The queue is registered for the run alone, and has been given exactly these
events unless it overflowed. -/
structure Feeding (m : WorkflowWSManager) (q : QueueId) (runId : String)
    (given : List WorkflowEvent) : Prop where
  subscribed : ∀ run, q ∈ m.sseSubscribers run ↔ run = runId
  queue : ∃ queue, m.queues[q]? = some queue ∧
    (queue.dropped = [] → queue.delivered ++ queue.items = given)

def Call.Keeps (call : Call) (runId : String) (q : QueueId) : Prop :=
  call ≠ .unsubscribe runId q

theorem feeding_subscribe (h : QueuesOk m)
    (hsub : (subscription m runId caller afterEventId).1 = some q) :
    Feeding (effect m (.subscribe runId caller afterEventId)) q runId [] := by
  obtain rfl := subscription_fst hsub
  rw [effect, hsub]
  refine ⟨fun run => ?_, {}, by simp [addSseSubscriber, newQueue], fun _ => rfl⟩
  have hfresh : m.queues.length ∉ m.newQueue.2.sseSubscribers run :=
    fun hq => absurd ((h run).2 _ hq) (by simp)
  dsimp only
  rw [sseSubscribers_addSseSubscriber]
  by_cases hrun : run = runId
  · simp [hrun, mem_addTo]
  · simpa [hrun] using hfresh

theorem Feeding.effect (h : Feeding m q runId given)
    (hs : Sockets m sessions) (hq : QueuesOk m) (hcall : call.Keeps runId q) :
    Feeding (WsManager.effect m call) q runId
      (given ++ publishedIn runId [⟨m, call, WsManager.effect m call⟩]) := by
  obtain ⟨hsub, queue, hqueue, hgiven⟩ := h
  have hlt : q < m.queues.length := (List.getElem?_eq_some_iff.mp hqueue).1
  by_cases hon : call.onSockets = true
  · obtain ⟨_, _, _, _, heq⟩ := effect_onSockets m hon
    have hnone : publishedIn runId [⟨m, call, WsManager.effect m call⟩] = [] := by
      cases call <;> first | rfl | cases hon
    rw [hnone, append_nil, heq]
    exact ⟨hsub, queue, hqueue, hgiven⟩
  · cases call with
    | connect | disconnect | sender => exact absurd rfl hon
    | registerRun => exact ⟨hsub, queue, hqueue, by simpa [publishedIn] using hgiven⟩
    | subscribe run caller afterEventId =>
      rw [show publishedIn runId _ = [] from rfl, append_nil, WsManager.effect]
      have hqueue' : m.newQueue.2.queues[q]? = some queue := by
        rw [newQueue, getElem?_append_left hlt, hqueue]
      cases hnew : (subscription m run caller afterEventId).1 with
      | none => exact ⟨hsub, queue, hqueue', hgiven⟩
      | some q' =>
        obtain rfl := subscription_fst hnew
        refine ⟨fun run' => ?_, queue, hqueue', hgiven⟩
        rw [sseSubscribers_addSseSubscriber]
        split_ifs
        · rw [mem_addTo, or_iff_left (Nat.ne_of_lt hlt)]
          exact hsub run'
        · exact hsub run'
    | unsubscribe run q' =>
      rw [show publishedIn runId _ = [] from rfl, append_nil, WsManager.effect]
      refine ⟨fun run' => ?_, queue, hqueue, hgiven⟩
      rw [sseSubscribers_unsubscribeSse]
      split_ifs with hrun
      · rw [List.mem_filter, hsub, hrun, and_iff_left_iff_imp]
        rintro rfl
        simpa using fun hqq : q = q' => hcall (hqq ▸ rfl)
      · exact hsub run'
    | take q' =>
      rw [show publishedIn runId _ = [] from rfl, append_nil, WsManager.effect, takeSse]
      refine ⟨hsub, _, by rw [getElem?_modify, hqueue]; rfl, fun hdropped => ?_⟩
      split_ifs at hdropped ⊢ with hqq
      · rw [← hgiven hdropped]
        cases hitems : queue.items <;> simp [hitems]
      · exact hgiven hdropped
    | publish e =>
      obtain ⟨queues, _, -, heq, hqueues, -⟩ := published_eq hs e (hq e.runId).1
      rw [WsManager.effect, heq]
      refine ⟨hsub, _, (hqueues q).trans (by rw [hqueue]; rfl), fun hdropped => ?_⟩
      dsimp only at hdropped ⊢
      by_cases hrun : e.runId = runId
      · rw [if_pos ((hsub _).mpr hrun)] at hdropped ⊢
        obtain ⟨hnone, hdelivered, hitems⟩ := put_of_dropped hdropped
        rw [hdelivered, hitems, ← append_assoc, hgiven hnone]
        simp [publishedIn, hrun]
      · rw [if_neg fun hmem => hrun ((hsub _).mp hmem)] at hdropped ⊢
        rw [hgiven hdropped]
        simp [publishedIn, hrun]

end Queues

section Delivery

variable {runId : String}
  {events pre post : List (History.Event WorkflowWSManager Call)}
  {ev : History.Event WorkflowWSManager Call}

structure Inv (r : History.Run WorkflowWSManager Call) : Prop where
  log : ∀ runId, RunLog r.state runId (publishedIn runId r.events)
  sockets : Sockets r.state fun ws => session ws r.events
  queues : QueuesOk r.state
  before : ∀ pre ev post, r.events = pre ++ ev :: post →
    ∀ runId, RunLog ev.before runId (publishedIn runId pre)
  feeding : ∀ pre ev post runId caller afterEventId q, r.events = pre ++ ev :: post →
    ev.op = .subscribe runId caller afterEventId →
    (subscription ev.before runId caller afterEventId).1 = some q →
    (∀ e ∈ post, e.op.Keeps runId q) → Feeding r.state q runId (publishedIn runId post)

theorem publishedIn_append (runId : String)
    (events events' : List (History.Event WorkflowWSManager Call)) :
    publishedIn runId (events ++ events') = publishedIn runId events ++ publishedIn runId events' :=
  filterMap_append

theorem inv_init (sseQueueMaxsize sseReplayBufferSize : ℕ) :
    Inv ⟨WorkflowWSManager.init sseQueueMaxsize sseReplayBufferSize, []⟩ where
  log runId := ⟨rfl, fun i h => absurd h (by simp [publishedIn]), drop_nil.symm⟩
  sockets := ⟨fun _ => nodup_nil, fun _ => rfl,
    fun _ _ => ⟨fun h => absurd h not_mem_nil, fun h => absurd h not_mem_nil⟩,
    fun _ => .inl ⟨rfl, rfl⟩⟩
  queues _ := ⟨nodup_nil, fun _ hq => absurd hq not_mem_nil⟩
  before _ _ _ h := by simp at h
  feeding _ _ _ _ _ _ _ h := by simp at h

theorem Inv.step (h : Inv r) (call : Call) :
    Inv ⟨effect r.state call, r.events ++ [⟨r.state, call, effect r.state call⟩]⟩ where
  log runId := by
    rw [publishedIn_append]
    exact (h.log runId).effect h.sockets h.queues call
  sockets := by
    simpa only [session, foldl_append, foldl_cons, foldl_nil] using
      h.sockets.effect call fun runId => (h.queues runId).1
  queues := h.queues.effect h.sockets call
  before pre ev post heq runId := by
    rcases History.split_concat heq with ⟨rfl, rfl, rfl⟩ | ⟨post', rfl, heq'⟩
    · exact h.log runId
    · exact h.before pre ev post' heq' runId
  feeding pre ev post runId caller afterEventId q heq hop hsub hkeep := by
    rcases History.split_concat heq with ⟨rfl, rfl, rfl⟩ | ⟨post', rfl, heq'⟩
    · obtain rfl : call = .subscribe runId caller afterEventId := hop
      exact feeding_subscribe h.queues hsub
    · rw [publishedIn_append]
      refine (h.feeding pre ev post' runId caller afterEventId q heq' hop hsub
        fun e he => hkeep e (mem_append_left _ he)).effect h.sockets h.queues ?_
      exact hkeep _ (mem_append_right _ (mem_singleton_self _))

theorem inv_history (sseQueueMaxsize sseReplayBufferSize : ℕ) (choices : List (Choice Call)) :
    Inv (history (WorkflowWSManager.init sseQueueMaxsize sseReplayBufferSize) choices) := by
  rw [history_eq_atomic]
  refine History.run_induction _ (inv_init _ _) (fun r call a m' h hrun => ?_)
    (fun r call e m' h hrun => ?_) _
  · obtain rfl : ((program call).segment r.state).2 = m' := by
      simpa [atomic, EStateM.run] using hrun
    rw [segment_program]
    exact h.step call
  · cases hrun

theorem parseEventCursor_ofNat (n : ℕ) :
    parseEventCursor (some (Text.ofNat n)) = some (n : Int) := by
  have hstrip : Text.strip (Text.ofNat n) = Text.ofNat n :=
    Text.strip_of_noSpace fun c hc => Text.isSpace_of_isDigit (Text.isDigit_of_mem_ofNat hc)
  simp [parseEventCursor, hstrip, Text.ofNat_ne_nil, Text.parseInt_ofNat]

theorem isAfter_of_eventId (h : e.eventId = some (Text.ofNat n))
    (cursor : Int) : isAfter cursor e = decide (cursor < n) := by
  rw [isAfter, h, parseEventCursor_ofNat]

theorem filter_isAfter_buffer (h : RunLog m runId log)
    (hcursor : (lastEventId m runId : Int) - (m.replayBuffer runId).length ≤ cursor) :
    (m.replayBuffer runId).filter (isAfter cursor) = log.filter (isAfter cursor) := by
  rw [h.last] at hcursor
  rw [h.buffer] at hcursor ⊢
  set dropped := log.length - m.sseReplayBufferSize with hdropped
  conv_rhs => rw [← take_append_drop dropped log]
  have hnone : (log.take dropped).filter (isAfter cursor) = [] := by
    refine filter_eq_nil_iff.mpr fun e he => ?_
    obtain ⟨i, hi, rfl⟩ := getElem_of_mem he
    have hi' : i < dropped ∧ i < log.length := by simpa [Nat.lt_min] using hi
    rw [getElem_take, isAfter_of_eventId (h.ids i hi'.2)]
    rw [length_drop] at hcursor
    simp only [decide_eq_true_eq]
    omega
  rw [filter_append, hnone, nil_append]

theorem filter_isAfter_later {log later : List WorkflowEvent} (h : RunLog m runId (log ++ later))
    {cursor : Int} (hcursor : cursor ≤ log.length) :
    later.filter (isAfter cursor) = later := by
  refine filter_eq_self.mpr fun e he => ?_
  obtain ⟨i, hi, rfl⟩ := getElem_of_mem he
  have hid := h.ids (log.length + i) (by rw [length_append]; omega)
  rw [getElem_append_right (Nat.le_add_right _ _)] at hid
  simp only [Nat.add_sub_cancel_left] at hid
  rw [isAfter_of_eventId hid, decide_eq_true_eq]
  omega

theorem received_sublist (ws : Ws) (runId : String) :
    ((session ws events).received.filter fun e => decide (e.runId = runId)).Sublist
      (publishedIn runId events) := by
  induction events using List.reverseRecOn with
  | nil => exact List.Sublist.slnil
  | append_singleton events e ih =>
    rw [publishedIn_append]
    have hsame : ((session ws events).received.filter fun e => decide (e.runId = runId)).Sublist
        (publishedIn runId events ++ publishedIn runId [e]) :=
      ih.trans (sublist_append_left _ _)
    rw [session, foldl_append, ← session, foldl_cons, foldl_nil, Session.next]
    split
    · split_ifs <;> exact hsame
    · split_ifs
      · exact nil_sublist _
      · exact hsame
    · rename_i event hop
      split_ifs
      · rw [filter_append]
        refine ih.append ?_
        by_cases hrun : event.runId = runId <;> simp [publishedIn, hop, hrun, assigned]
      · exact hsame
    · split
      · exact hsame
      · split_ifs
        · exact nil_sublist _
        · exact hsame
    · exact hsame

end Delivery

end Agent33.Workflows.WsManager
